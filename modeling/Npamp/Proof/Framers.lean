import Npamp.Framers
import Npamp.Proof.Frame

/-!
# The framers accept the same language

They check the header in different orders, but what one accepts is a whole frame that
`UnmarshalBinary` accepts, for all three.
-/

namespace Npamp

open Framing List

/-- Octets a stream reader takes for one frame: a header with the magic, and the payload it
announces, within the cap. -/
structure Framed (maxSize : Nat) (raw : Bytes) : Prop where
  header : headerSize ≤ raw.length
  magic : slice raw 0 4 = magic
  length : raw.length = headerSize + (uint32 (slice raw 17 21)).toNat
  cap : raw.length ≤ maxSize

variable {n maxSize : Nat} {s octets rest raw : Bytes} {f : Frame}

theorem slice_take {b : Bytes} {lo hi : Nat} (h : hi ≤ n) :
    slice (b.take n) lo hi = slice b lo hi := by
  rw [slice, take_take, Nat.min_eq_left h, slice]

theorem slice_append_left {a b : Bytes} {lo hi : Nat} (h : hi ≤ a.length) :
    slice (a ++ b) lo hi = slice a lo hi := by
  rw [slice, take_append_of_le_length h, slice]

theorem checkBoundary_eq_ok {pkg : String} {header : Bytes} :
    checkBoundary pkg maxSize header = .ok () ↔
      slice header 0 4 = magic ∧ headerSize + (uint32 (slice header 17 21)).toNat ≤ maxSize := by
  unfold checkBoundary
  dsimp only
  split_ifs with hmagic hcap
  · simp [hmagic]
  · simp only [false_iff, not_and, not_le]
    exact fun _ => hcap
  · simp only [true_iff]
    exact ⟨not_not.mp hmagic, Nat.not_lt.mp hcap⟩

theorem takeFront_eq_ok {short : GoError} :
    (if n ≤ s.length then Except.ok (s.take n, s.drop n) else .error short) = .ok (octets, rest)
      ↔ octets.length = n ∧ s = octets ++ rest := by
  constructor
  · intro h
    split_ifs at h with hn
    cases h
    exact ⟨length_take_of_le hn, (take_append_drop n s).symm⟩
  · rintro ⟨rfl, rfl⟩
    rw [if_pos (by simp), take_left, drop_left]

/-- `io.ReadFull` returns the first `n` octets when there are as many. -/
theorem readFull_eq_ok :
    readFull s n = .ok (octets, rest) ↔ octets.length = n ∧ s = octets ++ rest := by
  rw [readFull, ← apply_ite Except.error]
  exact takeFront_eq_ok

theorem copyN_eq_ok : copyN s n = .ok (octets, rest) ↔ octets.length = n ∧ s = octets ++ rest :=
  takeFront_eq_ok

theorem framed_of_boundary {pkg : String} {header payload : Bytes}
    (hheader : header.length = headerSize) (hcheck : checkBoundary pkg maxSize header = .ok ())
    (hpayload : payload.length = (uint32 (slice header 17 21)).toNat) :
    Framed maxSize (header ++ payload) := by
  obtain ⟨hmagic, hcap⟩ := checkBoundary_eq_ok.mp hcheck
  have hbound : ∀ {lo hi : Nat}, hi ≤ headerSize →
      slice (header ++ payload) lo hi = slice header lo hi :=
    fun h => slice_append_left (hheader ▸ h)
  have hlength : (header ++ payload).length = headerSize + (uint32 (slice header 17 21)).toNat := by
    rw [length_append, hheader, hpayload]
  refine ⟨hlength ▸ Nat.le_add_right _ _, ?_, ?_, hlength ▸ hcap⟩
  · rw [hbound (by decide), hmagic]
  · rw [hbound (by decide), hlength]

theorem Framed.split (h : Framed maxSize raw) (pkg : String) (rest : Bytes) :
    readFull (raw ++ rest) headerSize = .ok (raw.take headerSize, raw.drop headerSize ++ rest)
      ∧ checkBoundary pkg maxSize (raw.take headerSize) = .ok ()
      ∧ (raw.drop headerSize).length = (uint32 (slice (raw.take headerSize) 17 21)).toNat := by
  have hlength := h.length
  have hcap := h.cap
  refine ⟨readFull_eq_ok.mpr ⟨length_take_of_le h.header, ?_⟩,
    checkBoundary_eq_ok.mpr ⟨?_, ?_⟩, ?_⟩
  · rw [← append_assoc, take_append_drop]
  · rw [slice_take (by decide), h.magic]
  · rw [slice_take (by decide)]
    omega
  · rw [slice_take (by decide), length_drop]
    omega

/-- The reader of the SDK takes exactly the framed octets in front. -/
theorem Sdk.readFrame_eq_ok :
    Sdk.readFrame s = .ok (raw, rest) ↔ s = raw ++ rest ∧ Framed maxFrameSize raw := by
  unfold Sdk.readFrame
  constructor
  · intro h
    obtain ⟨⟨header, tail⟩, hread, hbody⟩ := exists_of_bind_eq_ok h
    obtain ⟨_, hcheck, hrest⟩ := exists_of_bind_eq_ok hbody
    obtain ⟨hheader, rfl⟩ := readFull_eq_ok.mp hread
    dsimp only at hrest
    split at hrest
    · cases hrest
    rename_i payload rest' hpayload
    cases hrest
    obtain ⟨hlength, rfl⟩ := copyN_eq_ok.mp hpayload
    exact ⟨(append_assoc _ _ _).symm, framed_of_boundary hheader hcheck hlength⟩
  · rintro ⟨rfl, hraw⟩
    obtain ⟨hread, hcheck, hpayload⟩ := hraw.split "sdk" rest
    rw [hread]
    simp only [bind, Except.bind, hcheck, copyN_eq_ok.mpr ⟨hpayload, rfl⟩, take_append_drop]
    rfl

/-- The reader of the relay takes the same, up to its own bound. -/
theorem Relay.readRawFrame_eq_ok {maxSize : UInt32} :
    Relay.readRawFrame s maxSize = .ok (raw, rest) ↔
      s = raw ++ rest ∧ Framed maxSize.toNat raw := by
  unfold Relay.readRawFrame
  constructor
  · intro h
    obtain ⟨⟨header, tail⟩, hread, hbody⟩ := exists_of_bind_eq_ok h
    obtain ⟨_, hcheck, hrest⟩ := exists_of_bind_eq_ok hbody
    obtain ⟨hheader, rfl⟩ := readFull_eq_ok.mp hread
    dsimp only at hrest
    split at hrest
    · split at hrest
      · cases hrest
      rename_i payload rest' hpayload
      cases hrest
      obtain ⟨hlength, rfl⟩ := readFull_eq_ok.mp hpayload
      exact ⟨(append_assoc _ _ _).symm, framed_of_boundary hheader hcheck hlength⟩
    · rename_i hzero
      obtain ⟨rfl, rfl⟩ := Prod.mk.inj (Except.ok.inj hrest)
      have hframed : Framed maxSize.toNat (header ++ []) :=
        framed_of_boundary hheader hcheck (Nat.eq_zero_of_not_pos hzero).symm
      rw [append_nil] at hframed
      exact ⟨rfl, hframed⟩
  · rintro ⟨rfl, hraw⟩
    obtain ⟨hread, hcheck, hpayload⟩ := hraw.split "relay" rest
    rw [hread]
    simp only [bind, Except.bind, hcheck]
    split_ifs with hpos
    · simp only [readFull_eq_ok.mpr ⟨hpayload, rfl⟩, take_append_drop]
      rfl
    have hempty : raw.drop headerSize = [] :=
      eq_nil_of_length_eq_zero (hpayload.trans (Nat.eq_zero_of_not_pos hpos))
    have hwhole : raw.take headerSize = raw := by
      conv_rhs => rw [← take_append_drop headerSize raw, hempty, append_nil]
    rw [hempty, hwhole]
    rfl

theorem framed_of_unmarshalBinary (h : unmarshalBinary raw = .ok f) (hcap : raw.length ≤ maxSize) :
    Framed maxSize raw := by
  unfold unmarshalBinary unmarshalBinaryWith at h
  split_ifs at h with hlength hcrc hmagic hversion hflags hreserved hpayload
  refine ⟨Nat.not_lt.mp hlength, not_not.mp hmagic, ?_, hcap⟩
  have := not_not.mp hpayload
  omega

theorem readFrame_eq_ok : readFrame s = .ok (f, n) ↔
      ∃ raw rest, s = raw ++ rest ∧ n = raw.length ∧ raw.length ≤ maxFrameSize
        ∧ unmarshalBinary raw = .ok f := by
  unfold readFrame
  dsimp only
  constructor
  · intro h
    split_ifs at h with hlength hcap htotal
    split at h
    · cases h
    rename_i g hparse
    cases h
    have htake := length_take_of_le (Nat.not_lt.mp htotal)
    exact ⟨_, _, (take_append_drop _ s).symm, htake.symm, htake.symm ▸ Nat.not_lt.mp hcap,
      hparse⟩
  · rintro ⟨raw, rest, rfl, rfl, hcap, hparse⟩
    have hraw := framed_of_unmarshalBinary hparse hcap
    have hlength := hraw.length
    rw [slice_append_left (le_trans (by decide) hraw.header), ← hlength,
      if_neg (by have := hraw.header; simp; omega), if_neg (by omega), if_neg (by simp),
      take_left, hparse]

/-- The stream starts with the octets of one frame, and `rest` is what follows it. -/
def TakesFrame (s : Bytes) (f : Frame) (rest : Bytes) : Prop :=
  ∃ raw, s = raw ++ rest ∧ raw.length ≤ maxFrameSize ∧ unmarshalBinary raw = .ok f

theorem nextOfBuffer_eq_some : nextOfBuffer s = some (f, rest) ↔ TakesFrame s f rest := by
  unfold nextOfBuffer
  constructor
  · intro h
    split at h
    · cases h
    rename_i g n hread
    obtain ⟨rfl, rfl⟩ := Prod.mk.inj (Option.some.inj h)
    obtain ⟨raw, rest, rfl, rfl, hcap, hparse⟩ := readFrame_eq_ok.mp hread
    exact ⟨raw, by rw [drop_left], hcap, hparse⟩
  · rintro ⟨raw, rfl, hcap, hparse⟩
    rw [readFrame_eq_ok.mpr ⟨raw, rest, rfl, rfl, hcap, hparse⟩]
    simp only [drop_left]

theorem nextOfStream_eq_some {read : Bytes → Except GoError (Bytes × Bytes)}
    (hread : ∀ s raw rest, read s = .ok (raw, rest) ↔ s = raw ++ rest ∧ Framed maxFrameSize raw) :
    nextOfStream read s = some (f, rest) ↔ TakesFrame s f rest := by
  unfold nextOfStream
  constructor
  · intro h
    split at h
    · cases h
    rename_i raw rest' hraw
    split at h
    · cases h
    rename_i g hparse
    obtain ⟨rfl, rfl⟩ := Prod.mk.inj (Option.some.inj h)
    obtain ⟨hs, hframed⟩ := (hread _ _ _).mp hraw
    exact ⟨raw, hs, hframed.cap, hparse⟩
  · rintro ⟨raw, rfl, hcap, hparse⟩
    rw [(hread _ _ _).mpr ⟨rfl, framed_of_unmarshalBinary hparse hcap⟩]
    simp only [hparse]

theorem TakesFrame.length_lt (h : TakesFrame s f rest) : rest.length < s.length := by
  obtain ⟨raw, rfl, hcap, hparse⟩ := h
  have hheader : 36 ≤ raw.length := (framed_of_unmarshalBinary hparse hcap).header
  rw [length_append]
  omega

theorem nextOfStream_eq_nextOfBuffer {read : Bytes → Except GoError (Bytes × Bytes)}
    (hread : ∀ s raw rest, read s = .ok (raw, rest) ↔ s = raw ++ rest ∧ Framed maxFrameSize raw) :
    nextOfStream read = nextOfBuffer := by
  funext s
  apply Option.ext
  rintro ⟨f, rest⟩
  rw [nextOfStream_eq_some hread, nextOfBuffer_eq_some]

theorem nextOfSdk_eq : nextOfSdk = nextOfBuffer :=
  nextOfStream_eq_nextOfBuffer fun _ _ _ => Sdk.readFrame_eq_ok

theorem nextOfRelay_eq : nextOfRelay (UInt32.ofNat maxFrameSize) = nextOfBuffer :=
  nextOfStream_eq_nextOfBuffer fun _ _ _ => Relay.readRawFrame_eq_ok

theorem takesFrame_marshalBinary (hf : f.Writable) (hcap : f.marshalBinary.length ≤ maxFrameSize)
    (rest : Bytes) : TakesFrame (f.marshalBinary ++ rest) { f with version := 2 } rest :=
  ⟨_, rfl, hcap, unmarshalBinary_marshalBinary hf⟩

theorem reads_marshalled {fs : List Frame}
    (hfs : ∀ f ∈ fs, f.Writable ∧ f.marshalBinary.length ≤ maxFrameSize) :
    Reads nextOfBuffer (fs.flatMap Frame.marshalBinary)
      (fs.map fun f => { f with version := 2 }) [] := by
  induction fs with
  | nil => exact .nil []
  | cons f rest ih =>
    obtain ⟨hf, hcap⟩ := hfs f mem_cons_self
    rw [flatMap_cons, map_cons]
    refine .cons (nextOfBuffer_eq_some.mpr (takesFrame_marshalBinary hf hcap _)) ?_
    exact ih fun g hg => hfs g (mem_cons_of_mem _ hg)

/-- **The three framers agree.** On every stream they find the same frames and leave the same octets
behind, at a point where no further frame can be read. -/
theorem framers_agree : (∀ s, splitFrames nextOfSdk s = splitFrames nextOfBuffer s
        ∧ splitFrames (nextOfRelay (UInt32.ofNat maxFrameSize)) s = splitFrames nextOfBuffer s
        ∧ nextOfBuffer (splitFrames nextOfBuffer s).2 = none)
      ∧ ∀ fs : List Frame, (∀ f ∈ fs, f.Writable ∧ f.marshalBinary.length ≤ maxFrameSize) →
          ∀ next ∈ [nextOfBuffer, nextOfSdk, nextOfRelay (UInt32.ofNat maxFrameSize)],
            splitFrames next (fs.flatMap Frame.marshalBinary)
              = (fs.map fun f => { f with version := 2 }, []) := by
  have hsize : ∀ s f rest, nextOfBuffer s = some (f, rest) → rest.length < s.length :=
    fun s f rest h => (nextOfBuffer_eq_some.mp h).length_lt
  rw [nextOfSdk_eq, nextOfRelay_eq]
  refine ⟨fun s => ⟨rfl, rfl, next_readAll hsize le_rfl⟩, ?_⟩
  intro fs hfs next hnext
  obtain rfl : next = nextOfBuffer := by simpa using hnext
  exact readAll_of_reads hsize (reads_marshalled hfs) rfl le_rfl

theorem framers_agree_two_frames :
    splitFrames nextOfSdk ([encryptedFrame, encryptedFrame].flatMap Frame.marshalBinary)
      = ([{ encryptedFrame with version := 2 }, { encryptedFrame with version := 2 }], []) :=
  framers_agree.2 [encryptedFrame, encryptedFrame]
    (by
      have hframe : encryptedFrame.Writable ∧ encryptedFrame.marshalBinary.length ≤ maxFrameSize :=
        ⟨⟨Or.inl rfl, rfl, by decide⟩, by rw [Frame.length_marshalBinary]; decide⟩
      intro f hf
      obtain rfl : f = encryptedFrame := by simpa using hf
      exact hframe)
    nextOfSdk (by simp)

/-- A frame with a version other than 2 marshals, and no framer reads it back. -/
theorem framers_refuse_version_one :
    let f : Frame := { version := 1, flags := 0, type := 1, channel := 0, seq := 0, payload := [] }
    f.marshalBinary.length ≤ maxFrameSize
      ∧ splitFrames nextOfBuffer ([f].flatMap Frame.marshalBinary) ≠ ([f], []) := by
  decide +kernel

end Npamp
