import Npamp.Tlv
import Npamp.Proof.Frame

/-!
# Decoding a concatenation of TLVs

The decoder peels one encoded TLV off the front at a time.
-/

namespace Npamp

open TLV List

def encodeTLVs (tlvs : List TLV) : Bytes := tlvs.flatMap fun t => t.encode []

@[simp]
theorem encodeTLVs_nil : encodeTLVs [] = [] := rfl

theorem encodeTLVs_cons (t : TLV) (rest : List TLV) :
    encodeTLVs (t :: rest) = t.encode [] ++ encodeTLVs rest := by
  simp [encodeTLVs]

theorem TLV.encode_eq_append (t : TLV) (dst : Bytes) : t.encode dst = dst ++ t.encode [] := by
  simp [encode]

theorem TLV.encode_nil (t : TLV) :
    t.encode [] = putUint16 t.type ++ (putUint16 (UInt16.ofNat t.value.length) ++ t.value) := by
  simp [encode]

@[simp]
theorem TLV.length_encode_nil (t : TLV) : (t.encode []).length = 4 + t.value.length := by
  rw [encode_nil]
  simp only [length_append, length_putUint16]
  omega

def TLV.Fits (t : TLV) : Prop := t.value.length < 2 ^ 16

theorem tlvHeader_encode {t : TLV} (ht : t.Fits) (rest : Bytes) :
    tlvHeader (t.encode [] ++ rest) = (t.type, t.value.length) := by
  have htype : slice (t.encode [] ++ rest) 0 2 = putUint16 t.type :=
    slice_eq_of_split (a := [])
      (c := putUint16 (UInt16.ofNat t.value.length) ++ t.value ++ rest)
      (by simp [encode_nil]) rfl (by simp)
  have hlength : slice (t.encode [] ++ rest) 2 4 = putUint16 (UInt16.ofNat t.value.length) :=
    slice_eq_of_split (a := putUint16 t.type) (c := t.value ++ rest)
      (by simp [encode_nil]) (by simp) (by simp)
  have hfits : (UInt16.ofNat t.value.length).toNat = t.value.length := by
    simpa using Nat.mod_eq_of_lt ht
  rw [tlvHeader, htype, hlength, uint16_putUint16, uint16_putUint16, hfits]

theorem slice_encode_value (t : TLV) (rest : Bytes) :
    slice (t.encode [] ++ rest) 4 (4 + t.value.length) = t.value :=
  slice_eq_of_split
    (a := putUint16 t.type ++ putUint16 (UInt16.ofNat t.value.length)) (c := rest)
    (by simp [encode_nil]) (by simp) (by simp)

theorem drop_encode_append (t : TLV) (rest : Bytes) :
    (t.encode [] ++ rest).drop (4 + t.value.length) = rest := by
  rw [← length_encode_nil, drop_left]

variable {buf : Bytes} {tlvs : List TLV} {fuel : Nat} {out : List TLV}

/-- Octets long enough for the header they start with start with a TLV. -/
theorem encode_of_tlvHeader {type : TLVType} {n : Nat} (hheader : tlvHeader buf = (type, n))
    (hlength : 4 + n ≤ buf.length) :
    encode { type := type, value := slice buf 4 (4 + n) } [] ++ buf.drop (4 + n) = buf := by
  obtain ⟨rfl, rfl⟩ := Prod.mk.inj hheader
  have hvalue : (slice buf 4 (4 + (uint16 (slice buf 2 4)).toNat)).length
      = (uint16 (slice buf 2 4)).toNat := by
    rw [length_slice hlength, Nat.add_sub_cancel_left]
  rw [encode_nil, hvalue, UInt16.ofNat_toNat,
    putUint16_uint16 (by rw [length_slice (by omega)]),
    putUint16_uint16 (by rw [length_slice (by omega)]), append_assoc, append_assoc,
    slice_append_drop buf (Nat.le_add_right _ _), slice_append_drop buf (by omega),
    slice_append_drop buf (by omega), drop_zero]

theorem decodeTLVsLoop_encode {t : TLV} (ht : t.Fits) (fuel : Nat) (out : List TLV) (rest : Bytes) :
    decodeTLVsLoop (fuel + 1) out (t.encode [] ++ rest)
      = if out.length + 1 > maxTLVsPerFrame then .error Sentinel.errTooManyTLVs.err
        else decodeTLVsLoop fuel (out ++ [t]) rest := by
  obtain ⟨htype, hlength⟩ := Prod.mk.inj (tlvHeader_encode ht rest)
  have hvalue := slice_encode_value t rest
  have hdrop := drop_encode_append t rest
  have hcons : ∃ octet tail, t.encode [] ++ rest = octet :: tail := by
    cases hbuf : t.encode [] ++ rest with
    | nil =>
      have := congrArg length hbuf
      simp at this
    | cons octet tail => exact ⟨octet, tail, rfl⟩
  obtain ⟨octet, tail, hcons⟩ := hcons
  rw [hcons] at htype hlength hvalue hdrop ⊢
  have hsize : (octet :: tail).length = 4 + t.value.length + rest.length := by
    rw [← hcons, length_append, length_encode_nil]
  rw [decodeTLVsLoop]
  simp only [htype, hlength, hvalue, hdrop]
  rw [if_neg (by omega), if_neg (by omega)]
  simp

theorem decodeTLVsLoop_encodeTLVs (hvalues : ∀ t ∈ tlvs, t.value.length < 2 ^ 16) :
    ∀ (fuel : Nat) (out : List TLV), (encodeTLVs tlvs).length ≤ fuel →
      out.length + tlvs.length ≤ maxTLVsPerFrame →
      decodeTLVsLoop fuel out (encodeTLVs tlvs) = .ok (out ++ tlvs) := by
  induction tlvs with
  | nil =>
    intro fuel out _ _
    cases fuel <;> simp [decodeTLVsLoop]
  | cons t rest ih =>
    intro fuel out hfuel hcount
    have hlength : (encodeTLVs (t :: rest)).length
        = 4 + t.value.length + (encodeTLVs rest).length := by
      rw [encodeTLVs_cons, length_append, length_encode_nil]
    obtain ⟨fuel', rfl⟩ : ∃ fuel', fuel = fuel' + 1 := ⟨fuel - 1, by omega⟩
    simp only [length_cons] at hcount
    rw [encodeTLVs_cons, decodeTLVsLoop_encode (hvalues t (by simp)), if_neg (by omega),
      ih (fun s hs => hvalues s (mem_cons_of_mem _ hs)) fuel' (out ++ [t]) (by omega)
        (by simp only [length_append, length_singleton]; omega)]
    simp

/-- **TLV round trip.** A concatenation of at most `maxTLVsPerFrame` encoded TLVs decodes to them.
-/
theorem decodeTLVs_encodeTLVs (hvalues : ∀ t ∈ tlvs, t.value.length < 2 ^ 16)
    (hcount : tlvs.length ≤ maxTLVsPerFrame) : decodeTLVs (encodeTLVs tlvs) = .ok tlvs := by
  have h := decodeTLVsLoop_encodeTLVs hvalues (encodeTLVs tlvs).length [] le_rfl (by simpa)
  simpa [decodeTLVs] using h

/-- Every iteration takes an encoded TLV off the front of the buffer, so what is accepted is the
concatenation of the TLVs returned. -/
theorem decodeTLVsLoop_sound (h : decodeTLVsLoop fuel out buf = .ok tlvs) :
    ∃ more, tlvs = out ++ more ∧ (∀ t ∈ more, t.Fits) ∧ encodeTLVs more = buf := by
  fun_induction decodeTLVsLoop fuel out buf with
  | case1 =>
    cases h
    exact ⟨[], (append_nil _).symm, fun _ ht => absurd ht not_mem_nil, rfl⟩
  | case6 fuel out octet rest buf _ typ ln hlength out' _ ih =>
    obtain ⟨more, rfl, hmore, hrest⟩ := ih h
    have hln : ln < 2 ^ 16 := UInt16.toNat_lt _
    have hvalue : (slice buf 4 (4 + ln)).length = ln := by
      rw [length_slice (not_lt.mp hlength), Nat.add_sub_cancel_left]
    refine ⟨_ :: more, append_assoc _ _ _, ?_, ?_⟩
    · intro t ht
      rcases mem_cons.mp ht with rfl | ht
      · exact hvalue.trans_lt hln
      · exact hmore t ht
    · rw [encodeTLVs_cons, hrest]
      exact encode_of_tlvHeader rfl (not_lt.mp hlength)
  | _ => cases h

/-- The decoder inverts the encoder on TLVs that fit. -/
theorem decodeTLVs_eq_ok (hcount : tlvs.length ≤ maxTLVsPerFrame) :
    decodeTLVs buf = .ok tlvs ↔ (∀ t ∈ tlvs, t.Fits) ∧ encodeTLVs tlvs = buf := by
  constructor
  · intro h
    obtain ⟨more, rfl, hfits, hbuf⟩ := decodeTLVsLoop_sound h
    exact ⟨hfits, hbuf⟩
  · rintro ⟨hfits, rfl⟩
    exact decodeTLVs_encodeTLVs hfits hcount

theorem decodeTLVsLoop_error {e : GoError} (h : decodeTLVsLoop fuel out buf = .error e) :
    e = Sentinel.errTruncatedTLV.err ∨ e = Sentinel.errTooManyTLVs.err := by
  fun_induction decodeTLVsLoop fuel out buf with
  | case1 => cases h
  | case5 =>
    cases h
    exact Or.inr rfl
  | case6 _ _ _ _ _ _ _ _ _ _ _ ih => exact ih h
  | _ =>
    cases h
    exact Or.inl rfl

theorem decodeTLVs_error {e : GoError} (h : decodeTLVs buf = .error e) :
    e = Sentinel.errTruncatedTLV.err ∨ e = Sentinel.errTooManyTLVs.err :=
  decodeTLVsLoop_error h

theorem length_le_of_decodeTLVsLoop (hout : out.length ≤ maxTLVsPerFrame)
    (h : decodeTLVsLoop fuel out buf = .ok tlvs) : tlvs.length ≤ maxTLVsPerFrame := by
  fun_induction decodeTLVsLoop fuel out buf with
  | case1 =>
    cases h
    exact hout
  | case6 _ _ _ _ _ _ _ _ _ _ hcount ih => exact ih (not_lt.mp hcount) h
  | _ => cases h

/-- The octets of one TLV: two of a type, two of a length, and as many as the length says. -/
def TLV.WellFormed (octets : Bytes) : Prop :=
  ∃ type length value : Bytes, type.length = 2 ∧ length.length = 2
    ∧ value.length = (uint16 length).toNat ∧ octets = type ++ length ++ value

theorem TLV.wellFormed_iff {octets : Bytes} :
    WellFormed octets ↔ ∃ t : TLV, t.Fits ∧ t.encode [] = octets := by
  constructor
  · rintro ⟨type, length, value, htype, hlength, hvalue, rfl⟩
    refine ⟨{ type := uint16 type, value := value }, ?_, ?_⟩
    · exact hvalue.trans_lt (UInt16.toNat_lt _)
    · rw [encode_nil, hvalue, UInt16.ofNat_toNat, putUint16_uint16 htype,
        putUint16_uint16 hlength, append_assoc]
  · rintro ⟨t, ht, rfl⟩
    refine ⟨putUint16 t.type, putUint16 (UInt16.ofNat t.value.length), t.value,
      length_putUint16 _, length_putUint16 _, ?_, ?_⟩
    · rw [uint16_putUint16]
      simpa using (Nat.mod_eq_of_lt ht).symm
    · rw [encode_nil, append_assoc]

theorem exists_tlvs_of_wellFormed {parts : List Bytes} (h : ∀ p ∈ parts, WellFormed p) :
    ∃ tlvs : List TLV, tlvs.length = parts.length ∧ (∀ t ∈ tlvs, t.Fits)
      ∧ encodeTLVs tlvs = parts.flatten := by
  induction parts with
  | nil => exact ⟨[], rfl, by simp, rfl⟩
  | cons p parts ih =>
    obtain ⟨t, ht, rfl⟩ := wellFormed_iff.mp (h p (by simp))
    obtain ⟨tlvs, hlength, hfits, hflat⟩ := ih fun q hq => h q (mem_cons_of_mem _ hq)
    refine ⟨t :: tlvs, by simp [hlength], forall_mem_cons.mpr ⟨ht, hfits⟩, ?_⟩
    rw [encodeTLVs_cons, hflat, flatten_cons]

/-- **The TLV sequence codec.** A buffer is decoded exactly when it is a concatenation of at most
`maxTLVsPerFrame` well-formed TLVs, and then the TLVs returned encode to it. -/
theorem decodeTLVs_exact : (∀ buf, (∃ tlvs, decodeTLVs buf = .ok tlvs)
        ↔ ∃ parts : List Bytes, parts.length ≤ maxTLVsPerFrame
          ∧ (∀ p ∈ parts, TLV.WellFormed p) ∧ parts.flatten = buf)
      ∧ (∀ buf tlvs, decodeTLVs buf = .ok tlvs → encodeTLVs tlvs = buf)
      ∧ ∀ tlvs : List TLV, tlvs.length ≤ maxTLVsPerFrame → (∀ t ∈ tlvs, t.value.length ≤ 65535) →
        decodeTLVs (encodeTLVs tlvs) = .ok tlvs := by
  have hread : ∀ {buf tlvs}, decodeTLVs buf = .ok tlvs →
      tlvs.length ≤ maxTLVsPerFrame ∧ (∀ t ∈ tlvs, t.Fits) ∧ encodeTLVs tlvs = buf := by
    intro buf tlvs h
    have hcount := length_le_of_decodeTLVsLoop (Nat.zero_le _) h
    exact ⟨hcount, (decodeTLVs_eq_ok hcount).mp h⟩
  refine ⟨fun buf => ⟨?_, ?_⟩, fun buf tlvs h => (hread h).2.2, ?_⟩
  · rintro ⟨tlvs, h⟩
    obtain ⟨hcount, hfits, rfl⟩ := hread h
    refine ⟨tlvs.map fun t => t.encode [], by rwa [List.length_map], ?_, ?_⟩
    · intro p hp
      obtain ⟨t, ht, rfl⟩ := List.mem_map.mp hp
      exact TLV.wellFormed_iff.mpr ⟨t, hfits t ht, rfl⟩
    · rw [encodeTLVs, List.flatMap_def]
  · rintro ⟨parts, hcount, hparts, rfl⟩
    obtain ⟨tlvs, hlength, hfits, hflat⟩ := exists_tlvs_of_wellFormed hparts
    exact ⟨tlvs, hflat ▸ decodeTLVs_encodeTLVs hfits (hlength.trans_le hcount)⟩
  · intro tlvs hcount hvalues
    exact decodeTLVs_encodeTLVs (fun t ht => Nat.lt_succ_of_le (hvalues t ht)) hcount

theorem decodeTLVs_exact_two : decodeTLVs (encodeTLVs [⟨0x0001, [7, 8]⟩, ⟨0x8002, []⟩])
    = .ok [⟨0x0001, [7, 8]⟩, ⟨0x8002, []⟩] :=
  decodeTLVs_exact.2.2 _ (by decide) (by decide)

end Npamp
