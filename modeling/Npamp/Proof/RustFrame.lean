import Npamp.Rust.Frame

/-!
# The two frame parsers

Go refuses one thing more than Rust: a frame with a reserved flag bit set.
-/

namespace Npamp.Rust

/-- **Go accepts what Rust accepts with the reserved flag bits clear**, as the same frame. -/
theorem unmarshalBinaryWith_eq_ok_iff (crc : Bytes → UInt32) (buf : Bytes) (f : Frame) :
    unmarshalBinaryWith crc buf = .ok f
      ↔ unmarshalWith crc buf = .ok f ∧ buf.getD 4 0 &&& reservedFlagMask = 0 := by
  unfold unmarshalBinaryWith unmarshalWith
  by_cases hlength : buf.length < headerSize
  · simp only [if_pos hlength, reduceCtorEq, false_and]
  by_cases hcrc : uint32 (slice buf 21 25) ≠ crc (slice buf 0 21)
  · simp only [if_neg hlength, if_pos hcrc, reduceCtorEq, false_and]
  by_cases hmagic : slice buf 0 4 ≠ magic
  · simp only [if_neg hlength, if_neg hcrc, if_pos hmagic, reduceCtorEq, false_and]
  by_cases hversion : buf.getD 4 0 >>> 4 ≠ protocolVersion
  · simp only [if_neg hlength, if_neg hcrc, if_neg hmagic, if_pos hversion, reduceCtorEq, false_and]
  simp only [if_neg hlength, if_neg hcrc, if_neg hmagic, if_neg hversion]
  by_cases hflag : buf.getD 4 0 &&& reservedFlagMask = 0
  · rw [if_neg (not_not_intro hflag), and_iff_left hflag]
    by_cases hreserved : (slice buf 25 headerSize).any (· ≠ 0) = true
    · simp only [if_pos hreserved, reduceCtorEq]
    · simp only [if_neg hreserved]
      split <;> simp only [reduceCtorEq, Except.ok.injEq]
  · rw [if_pos hflag]
    simp only [hflag, and_false, reduceCtorEq]

/-- A header that says what follows, the flag bits apart. -/
structure WellFormed (crc : Bytes → UInt32) (buf : Bytes) : Prop where
  length : headerSize ≤ buf.length
  checksum : uint32 (slice buf 21 25) = crc (slice buf 0 21)
  magic : slice buf 0 4 = magic
  version : buf.getD 4 0 >>> 4 = protocolVersion
  reserved : ∀ octet ∈ slice buf 25 headerSize, octet = 0
  payload : (uint32 (slice buf 17 21)).toNat = buf.length - headerSize

theorem exists_unmarshalWith_iff (crc : Bytes → UInt32) (buf : Bytes) :
    (∃ f, unmarshalWith crc buf = .ok f) ↔ WellFormed crc buf := by
  unfold unmarshalWith
  constructor
  · rintro ⟨f, h⟩
    split_ifs at h with hlength hcrc hmagic hversion hreserved hpayload
    exact ⟨Nat.not_lt.mp hlength, not_not.mp hcrc, not_not.mp hmagic, not_not.mp hversion,
      by simpa using hreserved, not_not.mp hpayload⟩
  · intro h
    have hreserved : ¬ (slice buf 25 headerSize).any (· ≠ 0) = true := by simpa using h.reserved
    rw [if_neg (Nat.not_lt.mpr h.length), if_neg (not_not_intro h.checksum),
      if_neg (not_not_intro h.magic), if_neg (not_not_intro h.version), if_neg hreserved,
      if_neg (not_not_intro h.payload)]
    exact ⟨_, rfl⟩

/-- **The Go and Rust frame parsers part on the well-formed frames with a reserved flag bit set**,
and on no other buffer. -/
theorem go_rust_unmarshal_agree (crc : Bytes → UInt32) (buf : Bytes) :
    (unmarshalBinaryWith crc buf).toOption = (unmarshalWith crc buf).toOption
      ↔ ¬ (WellFormed crc buf ∧ buf.getD 4 0 &&& reservedFlagMask ≠ 0) := by
  have hiff := unmarshalBinaryWith_eq_ok_iff crc buf
  rw [← exists_unmarshalWith_iff]
  cases hrust : unmarshalWith crc buf with
  | ok f =>
    cases hgo : unmarshalBinaryWith crc buf with
    | ok g =>
      obtain ⟨hg, hflag⟩ := (hiff g).mp hgo
      cases hrust.symm.trans hg
      exact iff_of_true rfl fun h => h.2 hflag
    | error e =>
      have hflag : buf.getD 4 0 &&& reservedFlagMask ≠ 0 := by
        intro hflag
        cases hgo.symm.trans ((hiff f).mpr ⟨hrust, hflag⟩)
      exact iff_of_false (fun h => by cases h) fun h => h ⟨⟨f, rfl⟩, hflag⟩
  | error e =>
    cases hgo : unmarshalBinaryWith crc buf with
    | ok g => cases hrust.symm.trans ((hiff g).mp hgo).1
    | error e' => exact iff_of_true rfl (by rintro ⟨⟨_, h⟩, -⟩; cases h)

def urgentFrame : Frame :=
  { version := protocolVersion, flags := 0x01, type := 0x0001, channel := 0, seq := 7,
    payload := [1, 2, 3] }

theorem go_rust_unmarshal_disagree : (unmarshal (marshal urgentFrame)).toOption = some urgentFrame
      ∧ (unmarshalBinary (marshal urgentFrame)).toOption = none := by
  decide +kernel

end Npamp.Rust
