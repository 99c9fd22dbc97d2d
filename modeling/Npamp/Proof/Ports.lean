import Npamp.Interop
import Npamp.Proof.Framers

/-!
# The frame readers on an open transport

Both readers decide on the header alone how many octets they need, so octets that arrive later never
change what they return.
-/

namespace Npamp

open List
open Dialogue (Port)

variable {ε : Type} {read : Bytes → Except ε (Bytes × Bytes)} {s raw : Bytes}

theorem frameOctets_append (hs : headerSize ≤ s.length) (t : Bytes) :
    frameOctets (s ++ t) = frameOctets s := by
  unfold frameOctets
  rw [slice_append_left (show 4 ≤ s.length from le_trans (by decide) hs),
    slice_append_left (show 21 ≤ s.length from le_trans (by decide) hs)]

theorem frameOctets_eq (hmagic : slice s 0 4 = magic)
    (hcap : headerSize + (uint32 (slice s 17 21)).toNat ≤ maxFrameSize) :
    frameOctets s = headerSize + (uint32 (slice s 17 21)).toNat := by
  rw [frameOctets, if_neg]
  rintro (hother | hlarge)
  · exact hother hmagic
  · exact hlarge.not_ge hcap

theorem frameOctets_framed (h : Framed maxFrameSize raw) : frameOctets raw = raw.length := by
  have hcap := h.cap
  rw [h.length] at hcap
  rw [frameOctets_eq h.magic hcap, h.length]

/-- A reader whose result does not depend on what lies behind the frame it reads. -/
def ReadsAhead (read : Bytes → Except ε (Bytes × Bytes)) : Prop :=
  ∀ s t, headerSize ≤ s.length → frameOctets s ≤ s.length →
    read (s ++ t) = (read s).map fun p => (p.1, p.2 ++ t)

def framePort (read : Bytes → Except ε (Bytes × Bytes)) (h : ReadsAhead read) :
    Port UInt8 ε Bytes where
  next := awaitFrame read
  next_append {s rest x} t hnext := by
    unfold awaitFrame at hnext ⊢
    split at hnext
    · cases hnext
    · rename_i henough
      rw [not_or, not_lt, not_lt] at henough
      obtain ⟨hheader, hoctets⟩ := henough
      have hlong : ¬ ((s ++ t).length < headerSize ∨ (s ++ t).length < frameOctets (s ++ t)) := by
        rw [frameOctets_append hheader, length_append]
        omega
      rw [if_neg hlong, h s t hheader hoctets]
      split at hnext
      · rename_i raw rest' hread
        cases hnext
        rw [hread]
        rfl
      · rename_i e hread
        cases hnext
        rw [hread, ← drop_append_of_le_length hheader]
        rfl

theorem takes_of_framed {h : ReadsAhead read} (hframed : Framed maxFrameSize raw)
    (hread : ∀ rest, read (raw ++ rest) = .ok (raw, rest)) : (framePort read h).Takes raw := by
  intro rest
  change awaitFrame read (raw ++ rest) = _
  have hlong : ¬ ((raw ++ rest).length < headerSize
      ∨ (raw ++ rest).length < frameOctets (raw ++ rest)) := by
    have hheader := hframed.header
    rw [frameOctets_append hheader, frameOctets_framed hframed, length_append]
    omega
  rw [awaitFrame, if_neg hlong, hread]

theorem Sdk.readsAhead : ReadsAhead Sdk.readFrame := by
  intro s t hheader hoctets
  have hfull (u : Bytes) (hu : headerSize ≤ u.length) :
      readFull u headerSize = .ok (u.take headerSize, u.drop headerSize) := if_pos hu
  have hlong : headerSize ≤ (s ++ t).length := by
    rw [length_append]
    omega
  unfold Sdk.readFrame
  rw [hfull s hheader, hfull (s ++ t) hlong, take_append_of_le_length hheader,
    drop_append_of_le_length hheader]
  simp only [bind, Except.bind]
  cases hcheck : checkBoundary "sdk" maxFrameSize (s.take headerSize) with
  | error e => rfl
  | ok _ =>
    obtain ⟨hmagic, hcap⟩ := checkBoundary_eq_ok.mp hcheck
    have hpayload : (uint32 (slice (s.take headerSize) 17 21)).toNat
        ≤ (s.drop headerSize).length := by
      rw [slice_take (by decide)] at hmagic hcap ⊢
      rw [frameOctets_eq hmagic hcap] at hoctets
      rw [length_drop]
      omega
    have hcopy (u : Bytes) (n : Nat) (hn : n ≤ u.length) : copyN u n = .ok (u.take n, u.drop n) :=
      if_pos hn
    have hpayload' := hpayload.trans (Nat.le_add_right _ t.length)
    rw [← length_append] at hpayload'
    simp only [hcopy _ _ hpayload, hcopy _ _ hpayload', take_append_of_le_length hpayload,
      drop_append_of_le_length hpayload]
    rfl

def goPort : Port UInt8 GoError Bytes := framePort Sdk.readFrame Sdk.readsAhead

theorem goPort_takes (hframed : Framed maxFrameSize raw) : goPort.Takes raw :=
  takes_of_framed hframed fun _ => Sdk.readFrame_eq_ok.mpr ⟨rfl, hframed⟩

namespace Rust

theorem readExact_of_le {s : Bytes} {n : Nat} (h : n ≤ s.length) :
    readExact s n = .ok (s.take n, s.drop n) := if_pos h

theorem readsAhead : ReadsAhead readFrame := by
  intro s t hheader hoctets
  have hlong : headerSize ≤ (s ++ t).length := by
    rw [length_append]
    omega
  unfold readFrame
  rw [readExact_of_le hheader, readExact_of_le hlong, take_append_of_le_length hheader,
    drop_append_of_le_length hheader]
  simp only [bind, Except.bind]
  by_cases hmagic : slice (s.take headerSize) 0 4 = magic
  · by_cases hcap : headerSize + (uint32 (slice (s.take headerSize) 17 21)).toNat ≤ maxFrameSize
    · have hpayload : headerSize + (uint32 (slice (s.take headerSize) 17 21)).toNat - headerSize
          ≤ (s.drop headerSize).length := by
        rw [slice_take (by decide)] at hmagic hcap ⊢
        rw [frameOctets_eq hmagic hcap] at hoctets
        rw [length_drop]
        omega
      have hpayload' := hpayload.trans (Nat.le_add_right _ t.length)
      rw [← length_append] at hpayload'
      rw [if_neg (not_not_intro hmagic), if_neg (not_lt.mpr hcap), if_neg (not_not_intro hmagic),
        if_neg (not_lt.mpr hcap), readExact_of_le hpayload, readExact_of_le hpayload',
        take_append_of_le_length hpayload, drop_append_of_le_length hpayload]
      rfl
    · simp only [if_neg (not_not_intro hmagic), if_pos (not_le.mp hcap)]
      rfl
  · simp only [if_pos hmagic]
    rfl

def port : Port UInt8 IoError Bytes := framePort readFrame readsAhead

theorem readFrame_framed (hframed : Framed maxFrameSize raw) (rest : Bytes) :
    readFrame (raw ++ rest) = .ok (raw, rest) := by
  have hheader := hframed.header
  have hlong : headerSize ≤ (raw ++ rest).length := by
    rw [length_append]
    omega
  have hcap := hframed.cap
  rw [hframed.length] at hcap
  have hsize : headerSize + (uint32 (slice raw 17 21)).toNat - headerSize
      = (raw.drop headerSize).length := by
    rw [length_drop, ← hframed.length]
  unfold readFrame
  rw [readExact_of_le hlong]
  simp only [bind, Except.bind]
  rw [slice_take (by decide), slice_take (by decide),
    slice_append_left (show 4 ≤ raw.length from le_trans (by decide) hheader),
    slice_append_left (show 21 ≤ raw.length from le_trans (by decide) hheader),
    if_neg (not_not_intro hframed.magic), if_neg (not_lt.mpr hcap), hsize,
    take_append_of_le_length hheader, drop_append_of_le_length hheader,
    readExact_of_le (by simp), take_left, drop_left]
  change Except.ok (raw.take headerSize ++ raw.drop headerSize, rest) = _
  rw [take_append_drop]

theorem port_takes (hframed : Framed maxFrameSize raw) : port.Takes raw :=
  takes_of_framed hframed (readFrame_framed hframed)

end Rust

end Npamp
