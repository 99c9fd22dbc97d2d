import Npamp.Frame

/-!
# The frame codec is a bijection on accepted buffers

Each slice the parser takes is one of the fields the marshaller wrote. The checksum is a parameter.
-/

namespace Npamp

open Npamp.Frame BigEndian List

theorem exists_of_bind_eq_ok {ε α β : Type} {x : Except ε α} {f : α → Except ε β} {b : β}
    (h : (x >>= f) = .ok b) : ∃ a, x = .ok a ∧ f a = .ok b := by
  cases x with
  | error e => cases h
  | ok a => exact ⟨a, rfl, h⟩

variable {b : Bytes} {lo hi : Nat}

theorem slice_eq_of_split {buf a c : Bytes} (hsplit : buf = a ++ b ++ c) (hlo : a.length = lo)
    (hhi : a.length + b.length = hi) : slice buf lo hi = b := by
  have htake : buf.take hi = a ++ b := by
    rw [hsplit, ← hhi, ← length_append, take_left]
  rw [slice, htake, ← hlo, drop_left]

theorem length_slice (h : hi ≤ b.length) : (slice b lo hi).length = hi - lo := by
  rw [slice, length_drop, length_take, Nat.min_eq_left h]

theorem slice_append_slice (b : Bytes) (mid : Nat) (hlo : lo ≤ mid) (hhi : mid ≤ hi) :
    slice b lo mid ++ slice b mid hi = slice b lo hi := by
  have hmid : b.take mid = (b.take hi).take mid := by rw [take_take, Nat.min_eq_left hhi]
  have hsplit : (b.take hi).drop mid = ((b.take hi).drop lo).drop (mid - lo) := by
    rw [drop_drop, Nat.add_sub_cancel' hlo]
  rw [slice, slice, slice, hmid, hsplit, drop_take, take_append_drop]

theorem slice_append_drop (b : Bytes) (hlo : lo ≤ hi) : slice b lo hi ++ b.drop hi = b.drop lo := by
  rw [slice, drop_take]
  conv_lhs => rw [← Nat.add_sub_cancel' hlo, ← drop_drop]
  rw [Nat.add_sub_cancel_left, take_append_drop]

theorem slice_singleton {i : Nat} (h : i < b.length) : slice b i (i + 1) = [b.getD i 0] := by
  rw [slice, drop_take, Nat.add_sub_cancel_left, drop_eq_getElem_cons h,
    getD_eq_getElem?_getD, getElem?_eq_getElem h]
  rfl

@[simp]
theorem length_putUint16 (v : UInt16) : (putUint16 v).length = 2 := length_toBytes _ _

@[simp]
theorem length_putUint32 (v : UInt32) : (putUint32 v).length = 4 := length_toBytes _ _

@[simp]
theorem length_putUint64 (v : UInt64) : (putUint64 v).length = 8 := length_toBytes _ _

@[simp]
theorem uint16_putUint16 (v : UInt16) : uint16 (putUint16 v) = v := by
  rw [uint16, putUint16, ofBytes_toBytes_of_lt (by simpa using v.toNat_lt)]
  simp

@[simp]
theorem uint32_putUint32 (v : UInt32) : uint32 (putUint32 v) = v := by
  rw [uint32, putUint32, ofBytes_toBytes_of_lt (by simpa using v.toNat_lt)]
  simp

@[simp]
theorem uint64_putUint64 (v : UInt64) : uint64 (putUint64 v) = v := by
  rw [uint64, putUint64, ofBytes_toBytes_of_lt (by simpa using v.toNat_lt)]
  simp

theorem putUint16_uint16 (hb : b.length = 2) : putUint16 (uint16 b) = b := by
  have hlt : ofBytes b < UInt16.size :=
    lt_of_lt_of_eq (ofBytes_lt b) (by rw [hb]; norm_num [UInt16.size])
  have hback := toBytes_ofBytes b
  rwa [hb, ← UInt16.toNat_ofNat_of_lt' hlt] at hback

theorem putUint32_uint32 (hb : b.length = 4) : putUint32 (uint32 b) = b := by
  have hlt : ofBytes b < UInt32.size :=
    lt_of_lt_of_eq (ofBytes_lt b) (by rw [hb]; norm_num [UInt32.size])
  have hback := toBytes_ofBytes b
  rwa [hb, ← UInt32.toNat_ofNat_of_lt' hlt] at hback

theorem putUint64_uint64 (hb : b.length = 8) : putUint64 (uint64 b) = b := by
  have hlt : ofBytes b < UInt64.size :=
    lt_of_lt_of_eq (ofBytes_lt b) (by rw [hb]; norm_num [UInt64.size])
  have hback := toBytes_ofBytes b
  rwa [hb, ← UInt64.toNat_ofNat_of_lt' hlt] at hback

/-- Version and flags as the header has them. -/
def Frame.octet4 (f : Frame) : UInt8 :=
  ((if f.version = 0 then protocolVersion else f.version) <<< 4) ||| (f.flags &&& 0x0F)

theorem Frame.headerPrefix_eq (f : Frame) (payloadLen : UInt32) : f.headerPrefix payloadLen
      = magic ++ [f.octet4] ++ putUint16 f.type ++ putUint16 f.channel ++ putUint64 f.seq
        ++ putUint32 payloadLen := rfl

@[simp]
theorem Frame.length_headerPrefix (f : Frame) (payloadLen : UInt32) :
    (f.headerPrefix payloadLen).length = 21 := by
  simp [headerPrefix_eq, magic]

section Checksum

variable (crc : Bytes → UInt32) (f : Frame)

theorem Frame.marshalBinaryWith_eq : f.marshalBinaryWith crc
      = magic ++ ([f.octet4] ++ (putUint16 f.type ++ (putUint16 f.channel ++ (putUint64 f.seq
        ++ (putUint32 (UInt32.ofNat f.payload.length)
        ++ (putUint32 (crc (f.headerPrefix (UInt32.ofNat f.payload.length)))
        ++ (replicate 11 0 ++ f.payload))))))) := by
  simp only [marshalBinaryWith, marshalHeaderWith, headerPrefix_eq, headerSize,
    append_assoc]

theorem Frame.length_marshalBinaryWith :
    (f.marshalBinaryWith crc).length = headerSize + f.payload.length := by
  rw [marshalBinaryWith_eq]
  simp only [length_append, length_putUint16, length_putUint32, length_putUint64,
    length_replicate, magic, length_cons, length_nil,
    headerSize]
  omega

theorem Frame.slice_marshalBinaryWith_prefix :
    slice (f.marshalBinaryWith crc) 0 21 = f.headerPrefix (UInt32.ofNat f.payload.length) :=
  slice_eq_of_split (a := [])
    (c := putUint32 (crc (f.headerPrefix (UInt32.ofNat f.payload.length)))
      ++ (replicate 11 0 ++ f.payload))
    (by simp [marshalBinaryWith_eq, headerPrefix_eq]) rfl (by simp)

theorem Frame.slice_marshalBinaryWith_magic : slice (f.marshalBinaryWith crc) 0 4 = magic :=
  slice_eq_of_split (a := []) (by rw [marshalBinaryWith_eq, nil_append]) rfl
    (by simp [magic])

theorem Frame.getD_marshalBinaryWith_four : (f.marshalBinaryWith crc).getD 4 0 = f.octet4 := by
  simp [marshalBinaryWith_eq, magic]

theorem Frame.slice_marshalBinaryWith_type :
    slice (f.marshalBinaryWith crc) 5 7 = putUint16 f.type :=
  slice_eq_of_split (a := magic ++ [f.octet4])
    (by rw [marshalBinaryWith_eq]; simp only [append_assoc]; rfl) (by simp [magic])
    (by simp [magic])

theorem Frame.slice_marshalBinaryWith_channel :
    slice (f.marshalBinaryWith crc) 7 9 = putUint16 f.channel :=
  slice_eq_of_split (a := magic ++ ([f.octet4] ++ putUint16 f.type))
    (by rw [marshalBinaryWith_eq]; simp only [append_assoc]; rfl) (by simp [magic])
    (by simp [magic])

theorem Frame.slice_marshalBinaryWith_seq :
    slice (f.marshalBinaryWith crc) 9 17 = putUint64 f.seq :=
  slice_eq_of_split (a := magic ++ ([f.octet4] ++ (putUint16 f.type ++ putUint16 f.channel)))
    (by rw [marshalBinaryWith_eq]; simp only [append_assoc]; rfl) (by simp [magic])
    (by simp [magic])

theorem Frame.slice_marshalBinaryWith_length :
    slice (f.marshalBinaryWith crc) 17 21 = putUint32 (UInt32.ofNat f.payload.length) :=
  slice_eq_of_split
    (a := magic ++ ([f.octet4] ++ (putUint16 f.type ++ (putUint16 f.channel ++ putUint64 f.seq))))
    (by rw [marshalBinaryWith_eq]; simp only [append_assoc]; rfl) (by simp [magic])
    (by simp [magic])

theorem Frame.slice_marshalBinaryWith_crc : slice (f.marshalBinaryWith crc) 21 25
      = putUint32 (crc (f.headerPrefix (UInt32.ofNat f.payload.length))) :=
  slice_eq_of_split (a := f.headerPrefix (UInt32.ofNat f.payload.length))
    (by rw [marshalBinaryWith_eq, headerPrefix_eq]; simp only [append_assoc]; rfl)
    (by simp) (by simp)

theorem Frame.slice_marshalBinaryWith_reserved :
    slice (f.marshalBinaryWith crc) 25 headerSize = replicate 11 0 :=
  slice_eq_of_split
    (a := f.headerPrefix (UInt32.ofNat f.payload.length)
      ++ putUint32 (crc (f.headerPrefix (UInt32.ofNat f.payload.length))))
    (by rw [marshalBinaryWith_eq, headerPrefix_eq]; simp only [append_assoc]; rfl)
    (by simp) (by simp [headerSize])

theorem Frame.drop_marshalBinaryWith : (f.marshalBinaryWith crc).drop headerSize = f.payload := by
  have hlength : (f.marshalHeaderWith crc (UInt32.ofNat f.payload.length)).length = headerSize := by
    simp [marshalHeaderWith, headerSize]
  rw [marshalBinaryWith, ← hlength, drop_left]

end Checksum

@[simp]
theorem Frame.length_marshalBinary (f : Frame) :
    f.marshalBinary.length = headerSize + f.payload.length :=
  f.length_marshalBinaryWith crc32c

/-- A version and flags the format defines: version 2, or zero which is written as 2, and no flag
outside ENC and COMP. -/
def Frame.Writable (f : Frame) : Prop :=
  (f.version = 0 ∨ f.version = protocolVersion) ∧ f.flags &&& ~~~(flagENC ||| flagCOMP) = 0
    ∧ f.payload.length < 2 ^ 32

theorem octet4_nibbles (flags : UInt8) (hflags : flags &&& ~~~(flagENC ||| flagCOMP) = 0) :
    ((protocolVersion <<< 4) ||| (flags &&& 0x0F)) >>> 4 = protocolVersion
      ∧ ((protocolVersion <<< 4) ||| (flags &&& 0x0F)) &&& reservedFlagMask = 0
      ∧ ((protocolVersion <<< 4) ||| (flags &&& 0x0F)) &&& 0x0F = flags := by
  cases flags with
  | ofBitVec bits =>
    cases bits with
    | ofFin value =>
      revert value
      decide +kernel

theorem unmarshalBinaryWith_marshalBinaryWith (crc : Bytes → UInt32) {f : Frame} (hf : f.Writable) :
    unmarshalBinaryWith crc (f.marshalBinaryWith crc)
      = .ok { f with version := protocolVersion } := by
  obtain ⟨hversion, hflags, hpayload⟩ := hf
  have hoctet : f.octet4 = (protocolVersion <<< 4) ||| (f.flags &&& 0x0F) := by
    rcases hversion with hzero | htwo
    · simp [octet4, hzero]
    · simp [octet4, htwo, protocolVersion]
  obtain ⟨hver, hreserved, hnibble⟩ := octet4_nibbles f.flags hflags
  have hlen : (UInt32.ofNat f.payload.length).toNat = f.payload.length := by
    simpa using Nat.mod_eq_of_lt hpayload
  rw [unmarshalBinaryWith, f.length_marshalBinaryWith, if_neg (by simp)]
  rw [f.slice_marshalBinaryWith_crc, f.slice_marshalBinaryWith_prefix, uint32_putUint32,
    if_neg (by simp), f.slice_marshalBinaryWith_magic, if_neg (by simp),
    f.getD_marshalBinaryWith_four, hoctet, hver, if_neg (by simp), hreserved, if_neg (by simp),
    f.slice_marshalBinaryWith_reserved, if_neg (by decide), f.slice_marshalBinaryWith_length,
    uint32_putUint32, hlen, if_neg (by simp), f.slice_marshalBinaryWith_type,
    f.slice_marshalBinaryWith_channel, f.slice_marshalBinaryWith_seq, f.drop_marshalBinaryWith,
    uint16_putUint16, uint16_putUint16, uint64_putUint64, hnibble]

/-- **A marshalled frame parses back to itself**, with the version the header carries. -/
theorem unmarshalBinary_marshalBinary {f : Frame} (hf : f.Writable) :
    unmarshalBinary f.marshalBinary = .ok { f with version := protocolVersion } :=
  unmarshalBinaryWith_marshalBinaryWith crc32c hf

theorem octet4_of_version {octet : UInt8} (hversion : octet >>> 4 = protocolVersion) :
    (protocolVersion <<< 4) ||| ((octet &&& 0x0F) &&& 0x0F) = octet := by
  cases octet with
  | ofBitVec bits =>
    cases bits with
    | ofFin value =>
      revert value
      decide +kernel

theorem eq_replicate_zero_of_any {b : Bytes} {n : Nat} (hlength : b.length = n)
    (h : ¬ b.any (· ≠ 0) = true) : b = replicate n 0 := by
  refine eq_replicate_iff.mpr ⟨hlength, ?_⟩
  intro octet hoctet
  by_contra hne
  exact h (any_eq_true.mpr ⟨octet, hoctet, by simpa using hne⟩)

theorem headerPrefix_of_unmarshalBinaryWith {crc : Bytes → UInt32} {buf : Bytes} {f : Frame}
    (h : unmarshalBinaryWith crc buf = .ok f) :
    f.headerPrefix (UInt32.ofNat f.payload.length) = slice buf 0 21 := by
  unfold unmarshalBinaryWith at h
  split_ifs at h with hlength hcrc hmagic hversion hflags hreserved hpayload
  have h36 : 36 ≤ buf.length := Nat.not_lt.mp hlength
  have hoctet : f.octet4 = buf.getD 4 0 := by
    cases h
    rw [octet4, not_not.mp hversion]
    exact octet4_of_version (not_not.mp hversion)
  have hpayloadLen : putUint32 (UInt32.ofNat f.payload.length) = slice buf 17 21 := by
    cases h
    rw [length_drop, ← not_not.mp hpayload, UInt32.ofNat_toNat,
      putUint32_uint32 (length_slice (by omega))]
  have htype : putUint16 f.type = slice buf 5 7 := by
    cases h
    exact putUint16_uint16 (length_slice (by omega))
  have hchannel : putUint16 f.channel = slice buf 7 9 := by
    cases h
    exact putUint16_uint16 (length_slice (by omega))
  have hseq : putUint64 f.seq = slice buf 9 17 := by
    cases h
    exact putUint64_uint64 (length_slice (by omega))
  calc f.headerPrefix (UInt32.ofNat f.payload.length)
      = slice buf 0 4 ++ (slice buf 4 5 ++ (slice buf 5 7 ++ (slice buf 7 9
          ++ (slice buf 9 17 ++ slice buf 17 21)))) := by
        rw [headerPrefix_eq, hoctet, htype, hchannel, hseq, hpayloadLen, not_not.mp hmagic,
          slice_singleton (by omega)]
        simp only [append_assoc]
    _ = slice buf 0 21 := by
        rw [slice_append_slice buf 17 (by decide) (by decide),
          slice_append_slice buf 9 (by decide) (by decide),
          slice_append_slice buf 7 (by decide) (by decide),
          slice_append_slice buf 5 (by decide) (by decide),
          slice_append_slice buf 4 (by decide) (by decide)]

/-- What was parsed is marshalled to the octets it came from. -/
theorem marshalBinaryWith_of_unmarshalBinaryWith {crc : Bytes → UInt32} {buf : Bytes} {f : Frame}
    (h : unmarshalBinaryWith crc buf = .ok f) : f.marshalBinaryWith crc = buf := by
  have hprefix := headerPrefix_of_unmarshalBinaryWith h
  unfold unmarshalBinaryWith at h
  split_ifs at h with hlength hcrc hmagic hversion hflags hreserved hpayload
  have h36 : 36 ≤ buf.length := Nat.not_lt.mp hlength
  have hzeros : slice buf 25 headerSize = replicate (headerSize - 25) 0 :=
    eq_replicate_zero_of_any (length_slice h36) hreserved
  have hpayload : f.payload = buf.drop headerSize := by rw [← Except.ok.inj h]
  calc f.marshalBinaryWith crc
      = slice buf 0 21 ++ (slice buf 21 25 ++ (slice buf 25 headerSize ++ buf.drop headerSize)) := by
        rw [marshalBinaryWith, marshalHeaderWith, hprefix, ← not_not.mp hcrc,
          putUint32_uint32 (length_slice (by omega)), hzeros, hpayload]
        simp only [append_assoc]
    _ = buf := by
        rw [slice_append_drop buf (by decide), slice_append_drop buf (by decide),
          slice_append_drop buf (by decide), drop_zero]

/-- **Frame codec round trip**, for any checksum. A parsed frame marshals to the buffer it was
parsed from, and a frame the format defines is parsed back. -/
theorem frame_codec_round_trip (crc : Bytes → UInt32) :
    (∀ buf f, unmarshalBinaryWith crc buf = .ok f →
        f.marshalBinaryWith crc = buf
          ∧ f.headerPrefix (UInt32.ofNat f.payload.length) = slice buf 0 21)
      ∧ ∀ f : Frame, (f.version = 0 ∨ f.version = 2) → f.flags &&& ~~~(flagENC ||| flagCOMP) = 0 →
          f.payload.length < 2 ^ 32 →
          unmarshalBinaryWith crc (f.marshalBinaryWith crc) = .ok { f with version := 2 } :=
  ⟨fun _ _ h => ⟨marshalBinaryWith_of_unmarshalBinaryWith h, headerPrefix_of_unmarshalBinaryWith h⟩,
    fun _ hversion hflags hpayload =>
      unmarshalBinaryWith_marshalBinaryWith crc ⟨hversion, hflags, hpayload⟩⟩

def encryptedFrame : Frame :=
  { version := 0, flags := flagENC, type := 0x0105, channel := 0x000D, seq := 7
    payload := [0xaa, 0xbb, 0xcc] }

theorem frame_codec_round_trip_encrypted :
    unmarshalBinary encryptedFrame.marshalBinary = .ok { encryptedFrame with version := 2 }
      ∧ ({ encryptedFrame with version := 2 } : Frame).marshalBinary = encryptedFrame.marshalBinary :=
  have hread := (frame_codec_round_trip crc32c).2 encryptedFrame (Or.inl rfl) rfl (by decide)
  ⟨hread, ((frame_codec_round_trip crc32c).1 _ _ hread).1⟩

end Npamp
