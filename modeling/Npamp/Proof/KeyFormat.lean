import Npamp.KeyFormat
import Npamp.Lib.CborRules

/-!
# A key record has one encoding

The octets `unmarshalRecord` accepts are determined by the values stored. The record keeps these
except for the two it narrows.
-/

namespace Npamp.KeyFormat

open CborReader List

variable {d d' : CborReader} {major : UInt8} {rest s : Bytes} {count : Nat} {rec rec' : KeyRecord}
  {key : UInt64} {octets : Bytes} {seen : List UInt64} {data : Bytes}

theorem readHead_eq_ok {v : UInt64} (h : d.readHead major = .ok (v, d')) :
    d.rest = encodeUint major v ++ d'.rest := by
  unfold readHead at h
  split at h
  case h_1 => cases h
  case h_2 ib tail hrest =>
      split_ifs at h with hmajor
      split at h
      case h_1 => cases h
      case h_2 arg n hread =>
          cases h
          obtain ⟨-, -, hhead⟩ := Cbor.head_of_readArg hread
          rw [of_not_not hmajor] at hhead
          rw [encodeUint, hhead, skip, hrest, take_append_drop]

theorem readHead_encodeUint (hmajor : major < 8) (pos : Nat) (v : UInt64) (rest : Bytes) :
    readHead ⟨pos, encodeUint major v ++ rest⟩ major
      = .ok (v, ⟨pos + (encodeUint major v).length, rest⟩) := by
  obtain ⟨ib, tail, hhead, hib, hread⟩ := Cbor.readArg_head hmajor v
  have hread := hread rest
  rw [← encodeUint] at hhead hread
  have hdrop : (encodeUint major v ++ rest).drop (encodeUint major v).length = rest :=
    drop_left
  generalize (encodeUint major v).length = n at hread hdrop ⊢
  rw [hhead, cons_append] at hread hdrop ⊢
  simp only [readHead, if_neg (not_not.2 hib), hread, skip, hdrop]

theorem encodeUint_append_inj (hmajor : major < 8) {v w : UInt64} {rest' : Bytes}
    (h : encodeUint major v ++ rest = encodeUint major w ++ rest') : v = w ∧ rest = rest' := by
  have hread := readHead_encodeUint hmajor 0 v rest
  rw [h, readHead_encodeUint hmajor] at hread
  cases hread
  exact ⟨rfl, rfl⟩

theorem readString_eq_ok (h : d.readString major = .ok (s, d')) : s.length < 2 ^ 64
      ∧ d.rest = encodeUint major (UInt64.ofNat s.length) ++ s ++ d'.rest := by
  unfold readString at h
  split at h
  case h_1 => cases h
  case h_2 n d₁ hhead =>
      split_ifs at h with hfits
      cases h
      have hlength : (d₁.rest.take n.toNat).length = n.toNat := by
        rw [length_take, Nat.min_eq_left (not_lt.1 hfits)]
      refine ⟨hlength.trans_lt n.toNat_lt, ?_⟩
      rw [readHead_eq_ok hhead, hlength, UInt64.ofNat_toNat, skip, append_assoc,
        take_append_drop]

theorem readString_encode (hmajor : major < 8) (pos : Nat) (hs : s.length < 2 ^ 64) (rest : Bytes) :
    ∃ pos', readString ⟨pos, encodeUint major (UInt64.ofNat s.length) ++ s ++ rest⟩ major
      = .ok (s, ⟨pos', rest⟩) := by
  refine ⟨pos + (encodeUint major (UInt64.ofNat s.length)).length + s.length, ?_⟩
  rw [append_assoc, readString, readHead_encodeUint hmajor]
  simp only [Cbor.toNat_ofNat_length hs, take_left, skip, drop_left]
  rw [if_neg (by simp)]

theorem encodeTextItem_append_inj {t rest' : Bytes} (hs : s.length < 2 ^ 64)
    (ht : t.length < 2 ^ 64) (h : encodeTextItem s ++ rest = encodeTextItem t ++ rest') :
    s = t ∧ rest = rest' := by
  rw [encodeTextItem, encodeTextItem, append_assoc, append_assoc] at h
  obtain ⟨hlength, h⟩ := encodeUint_append_inj (by decide) h
  refine append_inj h ?_
  rw [← Cbor.toNat_ofNat_length hs, hlength, Cbor.toNat_ofNat_length ht]

theorem readComponents_eq_ok {comps : List Bytes} (h : readComponents count d = .ok (comps, d')) :
    comps.length = count ∧ (∀ c ∈ comps, c.length < 2 ^ 64)
      ∧ d.rest = comps.flatMap encodeBytesItem ++ d'.rest := by
  induction count generalizing d comps with
  | zero =>
    cases h
    simp
  | succ count ih =>
    unfold readComponents at h
    split at h
    case h_1 => cases h
    case h_2 b d₁ hread =>
        split at h
        case h_1 => cases h
        case h_2 rest d₂ hrest =>
            cases h
            obtain ⟨hb, hoctets⟩ := readString_eq_ok hread
            obtain ⟨hlength, hsized, hoctets'⟩ := ih hrest
            refine ⟨by rw [length_cons, hlength], ?_, ?_⟩
            · exact forall_mem_cons.2 ⟨hb, hsized⟩
            · rw [hoctets, hoctets', flatMap_cons, encodeBytesItem, ← append_assoc]

theorem readComponents_flatMap {comps : List Bytes} (hcomps : ∀ c ∈ comps, c.length < 2 ^ 64)
    (pos : Nat) (rest : Bytes) :
    ∃ pos', readComponents comps.length ⟨pos, comps.flatMap encodeBytesItem ++ rest⟩
      = .ok (comps, ⟨pos', rest⟩) := by
  induction comps generalizing pos with
  | nil => exact ⟨pos, rfl⟩
  | cons c comps ih =>
    obtain ⟨hc, hcomps⟩ := forall_mem_cons.1 hcomps
    obtain ⟨mid, hread⟩ := readString_encode (by decide : cborMajorBytes < 8) pos hc
      (comps.flatMap encodeBytesItem ++ rest)
    obtain ⟨stop, hrest⟩ := ih hcomps mid
    refine ⟨stop, ?_⟩
    rw [flatMap_cons, encodeBytesItem, append_assoc, length_cons, readComponents,
      readBytes, hread]
    simp only [hrest]

/-- Which octets behind a key the field decoder takes, and what they set. -/
inductive FieldRead (rec : KeyRecord) : UInt64 → KeyRecord → Bytes → Prop where
  | formatVersion (v : UInt64) :
      FieldRead rec 1 { rec with formatVersion := v.toUInt16 } (encodeUint cborMajorUint v)
  | generation (s : Bytes) (hs : s.length < 2 ^ 64) :
      FieldRead rec 2 { rec with generation := s } (encodeTextItem s)
  | role (v : UInt64) :
      FieldRead rec 3 { rec with role := v.toUInt8 } (encodeUint cborMajorUint v)
  | algorithm (v : UInt64) :
      FieldRead rec 4 { rec with algorithm := v } (encodeUint cborMajorUint v)
  | components (comps : List Bytes) (hcount : comps.length < 2 ^ 64)
      (hsized : ∀ c ∈ comps, c.length < 2 ^ 64) :
      FieldRead rec 5 { rec with components := comps }
        (encodeUint cborMajorArray (UInt64.ofNat comps.length) ++ comps.flatMap encodeBytesItem)

theorem FieldRead.key_bounds (h : FieldRead rec key rec' octets) :
    1 ≤ key.toNat ∧ key.toNat ≤ 5 := by
  cases h <;> decide

theorem readField_eq_ok (h : d.readField key rec = .ok (rec', d')) :
    ∃ octets, FieldRead rec key rec' octets ∧ d.rest = octets ++ d'.rest := by
  unfold readField at h
  split_ifs at h with h1 h2 h3 h4 h5
  · subst h1
    split at h
    · cases h
    next v d₁ hread =>
      cases h
      exact ⟨_, .formatVersion v, readHead_eq_ok hread⟩
  · subst h2
    split at h
    · cases h
    next s d₁ hread =>
      cases h
      obtain ⟨hs, hoctets⟩ := readString_eq_ok hread
      exact ⟨_, .generation s hs, hoctets⟩
  · subst h3
    split at h
    · cases h
    next v d₁ hread =>
      cases h
      exact ⟨_, .role v, readHead_eq_ok hread⟩
  · subst h4
    split at h
    · cases h
    next v d₁ hread =>
      cases h
      exact ⟨_, .algorithm v, readHead_eq_ok hread⟩
  · subst h5
    split at h
    · cases h
    next alen d₁ hread =>
      split_ifs at h
      split at h
      · cases h
      next comps d₂ hcomps =>
        cases h
        obtain ⟨hlength, hsized, hoctets⟩ := readComponents_eq_ok hcomps
        refine ⟨_, .components comps (hlength ▸ alen.toNat_lt) hsized, ?_⟩
        rw [readHead_eq_ok hread, hoctets, hlength, UInt64.ofNat_toNat, append_assoc]

theorem readField_of_fieldRead (h : FieldRead rec key rec' octets) (pos : Nat) (rest : Bytes) :
    ∃ pos', readField ⟨pos, octets ++ rest⟩ key rec = .ok (rec', ⟨pos', rest⟩) := by
  cases h with
  | formatVersion v | role v | algorithm v =>
    refine ⟨pos + (encodeUint cborMajorUint v).length, ?_⟩
    simp only [readField, readUint, readHead_encodeUint (by decide : cborMajorUint < 8)]
    rfl
  | generation s hs =>
    obtain ⟨stop, hread⟩ := readString_encode (by decide : cborMajorText < 8) pos hs rest
    refine ⟨stop, ?_⟩
    simp only [readField, readText, encodeTextItem, hread]
    rfl
  | components comps hcount hsized =>
    have hfits : comps.length ≤ (comps.flatMap encodeBytesItem).length := by
      refine Cbor.Dialect.length_le_length_flatMap fun c _ => ?_
      have := Cbor.length_head_pos cborMajorBytes (UInt64.ofNat c.length)
      rw [encodeBytesItem, encodeUint, length_append]
      omega
    obtain ⟨stop, hread⟩ := readComponents_flatMap hsized
      (pos + (encodeUint cborMajorArray (UInt64.ofNat comps.length)).length) rest
    refine ⟨stop, ?_⟩
    rw [append_assoc, readField, if_neg (by decide), if_neg (by decide), if_neg (by decide),
      if_neg (by decide), if_pos rfl, readHead_encodeUint (by decide : cborMajorArray < 8)]
    simp only [Cbor.toNat_ofNat_length hcount, hread]
    rw [if_neg (by rw [length_append]; omega)]

theorem readFields_succ_eq_ok (h : readFields (count + 1) d seen rec = .ok (rec', d')) :
    ∃ key rec₁ octets d₁, (∀ last ∈ seen.head?, last < key) ∧ FieldRead rec key rec₁ octets
      ∧ d.rest = encodeUint cborMajorUint key ++ octets ++ d₁.rest
      ∧ readFields count d₁ (key :: seen) rec₁ = .ok (rec', d') := by
  unfold readFields at h
  split at h
  case h_1 => cases h
  case h_2 key d₁ hkey =>
      split_ifs at h with horder hseen
      split at h
      case h_1 => cases h
      case h_2 rec₁ d₂ hfield =>
          obtain ⟨octets, hread, hoctets⟩ := readField_eq_ok hfield
          refine ⟨key, rec₁, octets, d₂, fun last hlast => ?_, hread, ?_, h⟩
          · rw [Option.mem_def] at hlast
            simpa [hlast] using horder
          · rw [readHead_eq_ok hkey, hoctets, append_assoc]

theorem last_add_count_le {last : UInt64} (hlast : last.toNat ≤ 5)
    (h : readFields count d (last :: seen) rec = .ok (rec', d')) : last.toNat + count ≤ 5 := by
  induction count generalizing d last seen rec with
  | zero => exact hlast
  | succ count ih =>
    obtain ⟨key, rec₁, octets, d₁, hless, hfield, -, hrest⟩ := readFields_succ_eq_ok h
    have hkey := UInt64.lt_iff_toNat_lt.1 (hless last rfl)
    have := ih hfield.key_bounds.2 hrest
    omega

theorem readFields_next (h : readFields (count + 1) d seen rec = .ok (rec', d'))
    (hseen : seen.head?.elim 0 UInt64.toNat + count = 4) :
    ∃ rec₁ octets d₁, FieldRead rec (UInt64.ofNat (5 - count)) rec₁ octets
      ∧ d.rest = encodeUint cborMajorUint (UInt64.ofNat (5 - count)) ++ octets ++ d₁.rest
      ∧ readFields count d₁ (UInt64.ofNat (5 - count) :: seen) rec₁ = .ok (rec', d') := by
  obtain ⟨key, rec₁, octets, d₁, hless, hfield, hoctets, hrest⟩ := readFields_succ_eq_ok h
  have hroom := last_add_count_le hfield.key_bounds.2 hrest
  have hkey : key = UInt64.ofNat (5 - count) := by
    have habove : seen.head?.elim 0 UInt64.toNat < key.toNat := by
      cases hhead : seen.head? with
      | none => exact hfield.key_bounds.1
      | some last => exact UInt64.lt_iff_toNat_lt.1 (hless last hhead)
    rw [← UInt64.ofNat_toNat (x := key)]
    congr 1
    omega
  exact ⟨rec₁, octets, d₁, hkey ▸ hfield, hkey ▸ hoctets, hkey ▸ hrest⟩

/-- **What is accepted is laid out in one way.** -/
theorem unmarshalRecord_eq_ok (h : unmarshalRecord data = .ok rec) :
    ∃ s : Stored, s.Sized ∧ data = s.octets ∧ rec = s.record := by
  unfold unmarshalRecord at h
  split at h
  case h_1 => cases h
  case h_2 n d hmap =>
      split_ifs at h with hn
      split at h
      case h_1 => cases h
      case h_2 rec' d' hfields =>
          split_ifs at h with hend
          cases h
          obtain ⟨rec₁, o₁, d₁, hf₁, ho₁, h₁⟩ := readFields_next hfields rfl
          obtain ⟨rec₂, o₂, d₂, hf₂, ho₂, h₂⟩ := readFields_next h₁ rfl
          obtain ⟨rec₃, o₃, d₃, hf₃, ho₃, h₃⟩ := readFields_next h₂ rfl
          obtain ⟨rec₄, o₄, d₄, hf₄, ho₄, h₄⟩ := readFields_next h₃ rfl
          obtain ⟨rec₅, o₅, d₅, hf₅, ho₅, h₅⟩ := readFields_next h₄ rfl
          cases h₅
          cases hf₁ with
          | formatVersion version =>
          cases hf₂ with
          | generation generation hgeneration =>
          cases hf₃ with
          | role role =>
          cases hf₄ with
          | algorithm algorithm =>
          cases hf₅ with
          | components comps hcount hsized =>
          refine ⟨⟨version, generation, role, algorithm, comps⟩, ⟨hgeneration, hcount, hsized⟩,
            ?_, rfl⟩
          have hhead : data = encodeUint cborMajorMap n ++ d.rest := readHead_eq_ok hmap
          rw [of_not_not hn, ho₁, ho₂, ho₃, ho₄, ho₅, of_not_not hend] at hhead
          rw [hhead]
          simp only [Stored.octets, append_assoc, append_nil]
          rfl

theorem readFields_encode {rec₁ out : KeyRecord} (hfield : FieldRead rec key rec₁ octets)
    (hkey : ∀ last ∈ seen, last < key)
    (hrest : ∀ pos, ∃ stop, readFields count ⟨pos, rest⟩ (key :: seen) rec₁ = .ok (out, ⟨stop, []⟩))
    (pos : Nat) :
    ∃ stop, readFields (count + 1) ⟨pos, encodeUint cborMajorUint key ++ octets ++ rest⟩ seen rec
      = .ok (out, ⟨stop, []⟩) := by
  obtain ⟨mid, hread⟩ :=
    readField_of_fieldRead hfield (pos + (encodeUint cborMajorUint key).length) rest
  have hhead : ¬ (seen.head?.any (key ≤ ·)) = true := by
    cases seen with
    | nil => simp
    | cons last seen => simpa using hkey last mem_cons_self
  have hfresh : key ∉ seen := fun hmem => UInt64.lt_irrefl key (hkey key hmem)
  obtain ⟨stop, hrest⟩ := hrest mid
  refine ⟨stop, ?_⟩
  rw [append_assoc, readFields, readUint, readHead_encodeUint (by decide : cborMajorUint < 8)]
  simp only [if_neg hhead, if_neg hfresh, hread, hrest]

/-- **What is laid out so is accepted**, narrowed. -/
theorem unmarshalRecord_octets {s : Stored} (hs : s.Sized) :
    unmarshalRecord s.octets = .ok s.record := by
  have hread : ∀ pos, ∃ stop, readFields 5
      ⟨pos, encodeUint cborMajorUint 1 ++ encodeUint cborMajorUint s.formatVersion
        ++ (encodeUint cborMajorUint 2 ++ encodeTextItem s.generation
        ++ (encodeUint cborMajorUint 3 ++ encodeUint cborMajorUint s.role
        ++ (encodeUint cborMajorUint 4 ++ encodeUint cborMajorUint s.algorithm
        ++ (encodeUint cborMajorUint 5 ++ (encodeUint cborMajorArray
          (UInt64.ofNat s.components.length) ++ s.components.flatMap encodeBytesItem) ++ []))))⟩
      [] ⟨0, [], 0, 0, []⟩ = .ok (s.record, ⟨stop, []⟩) :=
    readFields_encode (.formatVersion s.formatVersion) (by simp)
      (readFields_encode (.generation s.generation hs.generation) (by simp)
        (readFields_encode (.role s.role) (by simp)
          (readFields_encode (.algorithm s.algorithm) (by simp)
            (readFields_encode (.components s.components hs.count hs.component) (by simp)
              fun pos => ⟨pos, rfl⟩))))
  obtain ⟨stop, hread⟩ := hread (0 + (encodeUint cborMajorMap 5).length)
  simp only [append_assoc, append_nil] at hread
  simp only [Stored.octets, append_assoc]
  rw [unmarshalRecord, readHead_encodeUint (by decide : cborMajorMap < 8)]
  simp only [ne_eq, not_true_eq_false, if_false, hread]

/-- The record as it is stored, its fields widened. -/
def KeyRecord.stored (rec : KeyRecord) : Stored :=
  ⟨rec.formatVersion.toUInt64, rec.generation, rec.role.toUInt64, rec.algorithm, rec.components⟩

theorem octets_stored (rec : KeyRecord) : rec.stored.octets = marshalRecord rec := rfl

theorem record_stored (rec : KeyRecord) : rec.stored.record = rec := by
  simp [KeyRecord.stored, Stored.record]

theorem stored_record {s : Stored} (hversion : s.formatVersion.toNat < 2 ^ 16)
    (hrole : s.role.toNat < 2 ^ 8) : s.record.stored = s := by
  have hversion' : s.formatVersion.toUInt16.toUInt64 = s.formatVersion := by
    rw [← UInt64.toNat_inj, UInt16.toNat_toUInt64, UInt64.toNat_toUInt16, Nat.mod_eq_of_lt hversion]
  have hrole' : s.role.toUInt8.toUInt64 = s.role := by
    rw [← UInt64.toNat_inj, UInt8.toNat_toUInt64, UInt64.toNat_toUInt8, Nat.mod_eq_of_lt hrole]
  simp only [KeyRecord.stored, Stored.record, hversion', hrole']

theorem unmarshalRecord_of_decode {gens : List Bytes} (h : decode data gens = .ok rec) :
    unmarshalRecord data = .ok rec := by
  unfold decode at h
  split_ifs at h
  split at h
  · cases h
  next rec' hread =>
    split_ifs at h
    · split at h <;> cases h
      exact hread
    · cases h
      exact hread

theorem stored_of_decode {gens : List Bytes} (hnarrow : Narrow data)
    (h : decode data gens = .ok rec) : rec.stored.octets = data := by
  obtain ⟨s, hsized, hdata, rfl⟩ := unmarshalRecord_eq_ok (unmarshalRecord_of_decode h)
  obtain ⟨hversion, hrole⟩ := hnarrow s hsized hdata
  rw [stored_record hversion hrole, hdata]

theorem narrow_marshalRecord (hgeneration : rec.generation.length < 2 ^ 64) :
    Narrow (marshalRecord rec) := by
  intro s hsized h
  have hmajor : cborMajorUint < 8 := by decide
  rw [← octets_stored] at h
  simp only [Stored.octets, append_assoc] at h
  obtain ⟨-, h⟩ := encodeUint_append_inj (by decide) h
  obtain ⟨-, h⟩ := encodeUint_append_inj hmajor h
  obtain ⟨hversion, h⟩ := encodeUint_append_inj hmajor h
  obtain ⟨-, h⟩ := encodeUint_append_inj hmajor h
  obtain ⟨-, h⟩ := encodeTextItem_append_inj hgeneration hsized.generation h
  obtain ⟨-, h⟩ := encodeUint_append_inj hmajor h
  obtain ⟨hrole, -⟩ := encodeUint_append_inj hmajor h
  rw [← hversion, ← hrole]
  exact ⟨rec.formatVersion.toNat_lt, rec.role.toNat_lt⟩

theorem registry_sizes {key : Role × UInt64} {sizes : List Nat}
    (h : registry.lookup key = some sizes) : sizes.length < 2 ^ 64 ∧ ∀ n ∈ sizes, n < 2 ^ 64 := by
  have hrows : ∀ row ∈ registry, row.2.length < 2 ^ 64 ∧ ∀ n ∈ row.2, n < 2 ^ 64 := by decide
  obtain ⟨before, after, hregistry, -⟩ := lookup_eq_some_iff.mp h
  exact hrows (key, sizes) (hregistry ▸ mem_append_right before mem_cons_self)

theorem sized_of_validate (hgeneration : rec.generation = alpn)
    (h : validateAgainstRegistry rec = .ok ()) : rec.stored.Sized := by
  unfold validateAgainstRegistry at h
  split_ifs at h
  split at h
  · cases h
  next sizes hlookup =>
    split_ifs at h with hcount hsizes
    obtain ⟨hlength, hbound⟩ := registry_sizes hlookup
    refine ⟨?_, ?_, fun c hc => ?_⟩
    · change rec.generation.length < 2 ^ 64
      rw [hgeneration]
      decide
    · exact (of_not_not hcount).trans_lt hlength
    · refine hbound _ ?_
      rw [← of_not_not hsizes]
      exact mem_map_of_mem hc

theorem decode_encode {out : Bytes} (h : encode rec = .ok out) : decode out [alpn] = .ok rec := by
  unfold encode at h
  split_ifs at h with hversion hgeneration
  rw [not_not] at hversion hgeneration
  split at h
  · cases h
  next hvalid =>
    cases h
    have hread := unmarshalRecord_octets (sized_of_validate hgeneration hvalid)
    rw [octets_stored, record_stored] at hread
    have hgroup : ¬ refusedKEMGroup rec = true := by
      intro hgroup
      rw [validateAgainstRegistry, if_pos hgroup] at hvalid
      cases hvalid
    simp only [decode, hread, hversion, hgeneration, hvalid, if_neg hgroup]
    simp

/-- **A record that decodes is written back as it was stored exactly if the stored version and role
fit in their fields**, which is also when the record returned has them, and a record that encodes is
read back. -/
theorem decode_canonical (data : Bytes) (gens : List Bytes) :
    (∀ rec, decode data gens = .ok rec →
      (marshalRecord rec = data ↔ Narrow data)
        ∧ ((∀ s : Stored, s.Sized → data = s.octets →
              rec.formatVersion.toNat = s.formatVersion.toNat ∧ rec.role.toNat = s.role.toNat)
            ↔ Narrow data)
        ∧ (Narrow data → ∀ data', Narrow data' → ∀ gens', decode data' gens' = .ok rec →
            data' = data))
      ∧ ∀ rec out, encode rec = .ok out → decode out [alpn] = .ok rec := by
  refine ⟨fun rec h => ⟨⟨fun hsame => ?_, fun hnarrow => stored_of_decode hnarrow h⟩,
    forall_congr' fun s => forall₂_congr fun hsized hdata => ?_, fun hnarrow data' hnarrow' gens' h'
      => ?_⟩, fun rec out h => decode_encode h⟩
  · obtain ⟨s, hsized, -, rfl⟩ := unmarshalRecord_eq_ok (unmarshalRecord_of_decode h)
    exact hsame ▸ narrow_marshalRecord hsized.generation
  · have hread := unmarshalRecord_of_decode h
    rw [hdata, unmarshalRecord_octets hsized] at hread
    cases hread
    refine and_congr ?_ ?_
    · exact (UInt64.toNat_toUInt16 _).congr_left.trans (Nat.mod_eq_iff_lt (by decide))
    · exact (UInt64.toNat_toUInt8 _).congr_left.trans (Nat.mod_eq_iff_lt (by decide))
  · rw [← stored_of_decode hnarrow' h', stored_of_decode hnarrow h]

def zeroKey : KeyRecord :=
  ⟨currentFormatVersion, alpn, roleSigPublic, sigEd25519.toUInt64, [replicate 32 0]⟩

def wideKey : Stored :=
  ⟨65537, alpn, 259, sigEd25519.toUInt64, [replicate 32 0]⟩

theorem decode_not_canonical : decode wideKey.octets [alpn] = .ok zeroKey
      ∧ decode (marshalRecord zeroKey) [alpn] = .ok zeroKey
      ∧ marshalRecord zeroKey ≠ wideKey.octets := by
  decide +kernel

end Npamp.KeyFormat
